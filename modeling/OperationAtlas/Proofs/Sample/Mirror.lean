import Mathlib.Tactic.Choose
import OperationAtlas.Proofs.Graphql.Composing
import OperationAtlas.Proofs.Graphql.Printing.Documents
import OperationAtlas.Proofs.Sample.KeyTree
import OperationAtlas.Proofs.Schema.Names
import OperationAtlas.Proofs.Session.Samples

/-!
# Samples mirror requests

The selection of a sample asks for exactly what its example value shows. `WritesFields` says that a
text writes plain fields, in a way that composes: fields nest in one another
(`WritesFields.nested`) and stand in lines (`writesFields_intercalate`). `Sample.Mirrors` puts the
selection and the example value of a sample side by side, and it passes from the samples that a
sample shows to that sample (`mirrors_ofPieces`), so that it holds of every sample of a session.

The names of a schema that was read are names of GraphQL, so all names that are composed are read
back as they are. `selection_mirrors_response` is the result.
-/

namespace OperationAtlas

open Graphql

/-! ## Texts of fields -/

/-- Lexemes write a plain field, and nothing in them changes when it is printed. -/
structure IsField (used : List Lexeme) (selection : Selection) : Prop where
  faithful : ∀ l ∈ used, l.IsFaithful
  fits : Selection.Fits used selection
  plain : selection.IsPlain

/-- A text writes plain fields, of which there is one. -/
def WritesFields (text : String) (selections : List Selection) : Prop :=
  ∃ parts : List (List Lexeme × Selection), parts ≠ [] ∧ selections = parts.map (·.2) ∧
    Spells text.toList (parts.flatMap (·.1)) ∧ ∀ part ∈ parts, IsField part.1 part.2

theorem IsField.ne_bad {used : List Lexeme} {selection : Selection} (h : IsField used selection) :
    ∀ l ∈ used, l ≠ .bad := by
  rintro _ hl rfl
  exact h.faithful _ hl

/-- A name without selections is a field. -/
theorem isField_leaf (name : String) :
    IsField (Selection.fieldLexemes name [] []) (.field none name [] [] []) where
  faithful := forall_mem_fieldLexemes (fun _ => trivial) (fun _ => trivial) nofun nofun
  fits := Selection.fits_field name nofun nofun
  plain := .field name [] nofun

/-- A name with fields in braces is a field. -/
theorem isField_nested (name : String) {parts : List (List Lexeme × Selection)}
    (h : ∀ part ∈ parts, IsField part.1 part.2) :
    IsField (Selection.fieldLexemes name [] parts)
      (.field none name [] [] (parts.map (·.2))) where
  faithful := forall_mem_fieldLexemes (fun _ => trivial) (fun _ => trivial) nofun
    fun part hpart => (h part hpart).faithful
  fits := Selection.fits_field name nofun fun part hpart => (h part hpart).fits
  plain := .field name _ fun selection hselection => by
    obtain ⟨part, hpart, rfl⟩ := List.mem_map.1 hselection
    exact (h part hpart).plain

/-- A name before fields in braces writes a field. -/
theorem WritesFields.nested {name text : String} {selections : List Selection} (hname : IsName name)
    (h : WritesFields text selections) :
    ∃ used, Spells (name ++ " \x7b\n" ++ text ++ "\n\x7d").toList used ∧
      IsField used (.field none name [] [] selections) := by
  obtain ⟨parts, hne, rfl, hspells, hparts⟩ := h
  refine ⟨_, ?_, isField_nested name hparts⟩
  have hclosing : Spells ['\n', '\x7d'] [.punct '\x7d'] := .feed (.punct (by decide) .nil)
  have hblock := Spells.punct (c := '\x7b') (by decide)
    (.feed (hspells.append hclosing (endsWord_cons.2 rfl)))
  have hfield := Spells.word hname hblock
  simpa [Selection.fieldLexemes, argumentLexemes, Selection.blockLexemes, hne] using hfield

/-- Fields in lines. -/
theorem writesFields_intercalate {α : Type} (text : α → String) (selection : α → Selection)
    {xs : List α} (hne : xs ≠ [])
    (h : ∀ x ∈ xs, ∃ used, Spells (text x).toList used ∧ IsField used (selection x)) :
    WritesFields ("\n".intercalate (xs.map text)) (xs.map selection) := by
  choose! lexemes hlexemes using h
  refine ⟨xs.map fun x => (lexemes x, selection x), by simpa using hne, by simp, ?_, ?_⟩
  · rw [List.flatMap_map]
    refine spells_intercalate "\n" (fun cs used hused => ?_) fun x hx => (hlexemes x hx).1
    exact ⟨.feed hused, endsWord_cons.2 rfl⟩
  · intro part hpart
    obtain ⟨x, hx, rfl⟩ := List.mem_map.1 hpart
    exact (hlexemes x hx).2

/-- Fields in braces behind a keyword. -/
theorem spells_query {text : String} {parts : List (List Lexeme × Selection)}
    (h : Spells text.toList (parts.flatMap (·.1))) :
    Spells ("query \x7b" ++ text ++ "\x7d").toList (operationLexemes .query parts) := by
  have hquery := Spells.word (isName_keyword .query) (spells_block_of_fields h)
  simpa [operationLexemes, OperationKind.keyword] using hquery

/-- A text of fields parses as a selection if it does not nest too deep. -/
theorem parse_fields {text : String} {parts : List (List Lexeme × Selection)} (hne : parts ≠ [])
    (h : Spells text.toList (parts.flatMap (·.1))) (hparts : ∀ part ∈ parts, IsField part.1 part.2)
    (hnesting : nesting 0 (lexemesOf ("query \x7b" ++ text ++ "\x7d").toList) ≤ Reader.maxLevels) :
    Document.parse ("query \x7b" ++ text ++ "\x7d") =
      .ok [.operation .query none [] [] (parts.map (·.2))] :=
  (Document.parse_of_spells hne (spells_query h) (fun part hpart => (hparts part hpart).ne_bad)
    (fun part hpart => (hparts part hpart).fits) hnesting).2

/-! ## Samples -/

/-- The selection of a sample writes fields with the names that the example value has as keys. -/
def Sample.Mirrors (sample : Sample) : Prop :=
  ∃ selections tree, WritesFields sample.selection selections ∧ Selection.Grows selections tree ∧
    sample.response.keyTree? = some tree

/-- The example value of a leaf is a truth value, a number or a string. -/
theorem Leaf.keyTree?_response (leaf : Leaf) (override? : Option String) :
    (leaf.response override?).keyTree? = some .leaf := by
  unfold Leaf.response
  split <;> (try split) <;> (try split) <;> rfl

/-- The field that selects the name of a type. -/
def typenameBranch : Selection.Branch := ⟨typenameField, [], .leaf⟩

theorem isName_typename : IsName typenameField := by decide

theorem writesFields_typename : WritesFields typenameField [typenameBranch.field] :=
  writesFields_intercalate (fun _ => typenameField) (fun _ => typenameBranch.field)
    (List.cons_ne_nil () []) fun _ _ => ⟨_, .name isName_typename, isField_leaf _⟩

theorem grows_typename :
    Selection.Grows [typenameBranch.field] (.node [(typenameField, .leaf)]) :=
  Selection.grows_fields (List.cons_ne_nil typenameBranch [])
    (List.forall_mem_singleton.2 .nil) (by simp)

theorem keyTree?_typename (schemaType : String) :
    (Json.object [(typenameField, .string schemaType)]).keyTree? =
      some (.node [(typenameField, .leaf)]) :=
  rfl

namespace Surroundings

variable {around : Surroundings} {known : List (String × Sample)}

/-- A field of a schema with what stands behind it is written as a plain field, and it has the names
below it that the example value has as keys. -/
theorem Match.exists_branch {m : Match} (hname : IsName m.field.name)
    (hknown : ∀ entry ∈ known, entry.2.Mirrors) :
    ∃ branch : Selection.Branch, branch.name = m.field.name ∧
      (∃ used, Spells (m.selection known).toList used ∧ IsField used branch.field) ∧
      Selection.Grows branch.selections branch.tree ∧
      (m.response known).keyTree? = some branch.tree := by
  cases hkind : m.kind with
  | leaf leaf =>
    refine ⟨⟨m.field.name, [], .leaf⟩, rfl, ⟨_, ?_, isField_leaf _⟩, .nil, ?_⟩
    · rw [Match.selection, hkind]
      exact .name hname
    · simpa [Match.response, hkind] using leaf.keyTree?_response m.member.doc.override?
  | list | object =>
    cases hsample : OrderedMap.lookup m.element.simpleName known with
    | some sample =>
      obtain ⟨selections, tree, hwrites, hgrows, htree⟩ :=
        hknown _ (OrderedMap.mem_of_lookup hsample)
      refine ⟨⟨m.field.name, selections, tree⟩, rfl, ?_, hgrows, ?_⟩
      · simpa [Match.selection, hkind, hsample, Selection.Branch.field] using hwrites.nested hname
      · simpa [Match.response, hkind, hsample] using htree
    | none =>
      refine ⟨⟨m.field.name, [typenameBranch.field], _⟩, rfl, ?_, grows_typename, ?_⟩
      · simpa [Match.selection, hkind, hsample, typenameField, Selection.Branch.field] using
          writesFields_typename.nested hname
      · rw [Match.response, hkind, hsample, Json.inArrays_eq_nest, Json.keyTree?_nest]
        exact keyTree?_typename m.field.type.name

/-- Fields of one name have the same keys in their example values. -/
theorem Match.keyTree?_response_congr (known : List (String × Sample)) {hostType : String}
    {m m' : Match}
    (h : m.Finds around hostType) (h' : m'.Finds around hostType)
    (hname : m.field.name = m'.field.name) :
    (m.response known).keyTree? = (m'.response known).keyTree? := by
  obtain ⟨hmember, helement, -, hkind⟩ := h.agree h' hname
  rw [Match.response, Match.response, Json.inArrays_eq_nest, Json.inArrays_eq_nest,
    Json.keyTree?_nest, Json.keyTree?_nest, hmember, helement, hkind]
  split
  · rfl
  · split
    · rfl
    · rw [← typenameField, keyTree?_typename, keyTree?_typename]

/-- A sample mirrors if the samples that it shows do. -/
theorem mirrors_ofPieces {type : HostType} {schemaType hostType : String} {found : List Match}
    (hnames : ∀ m ∈ found, IsName m.field.name) (hknown : ∀ entry ∈ known, entry.2.Mirrors)
    (hfound : ∀ m ∈ found, m.Finds around hostType) :
    (Sample.ofPieces type schemaType (found.map (Match.piece known))).Mirrors := by
  by_cases hne : found = []
  · subst hne
    exact ⟨_, _, writesFields_typename, grows_typename, keyTree?_typename schemaType⟩
  · have hbranch : ∀ m ∈ found, ∃ branch : Selection.Branch, branch.name = m.field.name ∧
        (∃ used, Spells (m.selection known).toList used ∧ IsField used branch.field) ∧
        Selection.Grows branch.selections branch.tree ∧
        (m.response known).keyTree? = some branch.tree :=
      fun m hm => Match.exists_branch (hnames m hm) hknown
    choose! branch hbranch using hbranch
    have hkeys : (found.map branch).map (fun b => (b.name, b.tree)) =
        found.map fun m => (m.field.name, (branch m).tree) := by
      rw [List.map_map]
      exact List.map_congr_left fun m hm => by rw [Function.comp_apply, (hbranch m hm).1]
    have hempty : (found.map (Match.piece known)).isEmpty = false := by simpa using hne
    refine ⟨found.map fun m => (branch m).field,
      .node (OrderedMap.ofPairs (found.map fun m => (m.field.name, (branch m).tree))), ?_, ?_, ?_⟩
    · have hwrites := writesFields_intercalate _ _ hne fun m hm => (hbranch m hm).2.1
      simpa [Sample.ofPieces, hne, Function.comp_def, Match.piece] using hwrites
    · have hbranches : found.map branch ≠ [] := by simpa using hne
      have hgrows := Selection.grows_fields hbranches
        (by simpa using fun m hm => (hbranch m hm).2.2.1) (by
          simp only [List.forall_mem_map]
          intro m hm m' hm' hname
          rw [(hbranch m hm).1, (hbranch m' hm').1] at hname
          have hsame := Match.keyTree?_response_congr known (hfound m hm) (hfound m' hm') hname
          rw [(hbranch m hm).2.2.2, (hbranch m' hm').2.2.2] at hsame
          exact Option.some.inj hsame)
      rwa [hkeys, List.map_map] at hgrows
    · have htrees := Json.keyTrees?_ofPairs
        (found.map fun m => (m.field.name, m.response known, (branch m).tree))
        (by simpa using fun m hm => (hbranch m hm).2.2.2)
      rw [List.map_map, List.map_map] at htrees
      simp only [Sample.ofPieces, hempty, Bool.false_eq_true, if_false, List.map_map, Json.keyTree?]
      exact congrArg (Option.map KeyTree.node) htrees

/-- For a schema that was read, every sample of a session mirrors. -/
theorem Reachable.mirrors {sources : List (String × String)} {session : Session}
    (h : around.Reachable session) (hschema : SchemaIndex.ofSources sources = .ok around.schema) :
    ∀ entry ∈ session.samples, entry.2.Mirrors := by
  refine h.forall_sample fun known type schemaType found name hknown hfields hfound => ?_
  refine mirrors_ofPieces (fun m hm => ?_) hknown hfound
  have hfield : m.field ∈ around.schema.describe schemaType := hfields ▸ List.mem_map_of_mem hm
  exact SchemaIndex.isName_of_ofSources hschema hfield

/-- For every schema that was read and in every session that calls lead to, the selection of a
walked type is a selection of plain fields, if it does not nest deeper than can be read. There is
one, and the tree of their names is the tree of the keys of the example value: where a field has
selections the value has an object, and where it has none a truth value, a number or a string. -/
theorem selection_mirrors_response {sources : List (String × String)}
    (hschema : SchemaIndex.ofSources sources = .ok around.schema) {session : Session}
    (h : around.Reachable session) {name : String} {sample : Sample}
    (hsample : session.sample? name = some sample) :
    ∃ selections : List Selection, selections ≠ [] ∧
      (∀ selection ∈ selections, selection.IsPlain) ∧
      sample.response.keyTree? = some (Selection.keyTree selections) ∧
      (nesting 0 (lexemesOf ("query \x7b" ++ sample.selection ++ "\x7d").toList) ≤
        Reader.maxLevels →
        Document.parse ("query \x7b" ++ sample.selection ++ "\x7d") =
          .ok [.operation .query none [] [] selections]) := by
  obtain ⟨selections, tree, hwrites, hgrows, htree⟩ :=
    h.mirrors hschema _ (OrderedMap.mem_of_lookup hsample)
  obtain ⟨parts, hne, rfl, hspells, hparts⟩ := hwrites
  refine ⟨parts.map (·.2), by simpa using hne, ?_, by rw [htree, hgrows.keyTree],
    fun hnesting => ?_⟩
  · intro selection hselection
    obtain ⟨part, hpart, rfl⟩ := List.mem_map.1 hselection
    exact (hparts part hpart).plain
  · exact parse_fields hne hspells hparts hnesting

/-- The schema of the user with friends as a text. -/
def friendsText : String :=
  "type User \x7b id: ID! friends: [User] address: Address id: ID \x7d " ++
    "type Address \x7b city: String \x7d"

theorem ofSources_friendsText :
    SchemaIndex.ofSources [("schema", friendsText)] = .ok friends.schema := by
  rfl

/-- The user with friends selects the address and itself, the latter by the name of its type, and
the identifier twice. -/
theorem friends_mirror :
    SchemaIndex.ofSources [("schema", friendsText)] = .ok friends.schema ∧
      friends.Reachable friendsSession ∧
      ∃ sample, friendsSession.sample? "UserView" = some sample ∧
        sample.selection = "id\nfriends \x7b\n__typename\n\x7d\naddress \x7b\ncity\n\x7d\nid" ∧
        ∃ selections : List Selection, selections ≠ [] ∧
          (∀ selection ∈ selections, selection.IsPlain) ∧
          sample.response.keyTree? = some (Selection.keyTree selections) ∧
          Document.parse ("query \x7b" ++ sample.selection ++ "\x7d") =
            .ok [.operation .query none [] [] selections] := by
  have hreach : friends.Reachable friendsSession := .call (.call .fresh _) _
  have hsample : friendsSession.sample? "UserView" =
      some ((friendsSession.sample? "UserView").get (by decide)) := by simp
  obtain ⟨selections, hne, hplain, htree, hparse⟩ :=
    selection_mirrors_response ofSources_friendsText hreach hsample
  exact ⟨ofSources_friendsText, hreach, _, hsample, by decide, selections, hne, hplain, htree,
    hparse (by decide)⟩

end Surroundings

end OperationAtlas
